import FormulaLatex.Proofs.RenameTable.Lookup

/-! The history of a rename table. However a table came about, it holds for each canonical name
the symbol that was written for it last, unless the name was removed since.
-/

namespace FormulaLatex.RenameTable

-----------------------------------------------------------------------------------------
-- Changes
-----------------------------------------------------------------------------------------

/-- A change to a rename table. -/
inductive Edit
  /-- A symbol takes its place for a name. -/
  | insert (reference symbol : String)
  /-- A name loses its entry. -/
  | erase (reference : String)
  /-- The names of a formula are entered. -/
  | seed (formula : String) (options : TokenizerOptions)
  /-- A list of entries makes up a new table. -/
  | rebuild (entries : List (String × String))
  /-- A JSON text makes up a new table, unless it is no object of strings. -/
  | load (text : String)

/-- The table after a change. -/
def edit (table : RenameTable) : Edit → RenameTable
  | .insert reference symbol => table.insert reference symbol
  | .erase reference => table.erase reference
  | .seed formula options => table.seed formula options
  | .rebuild entries => ofList entries
  | .load text => (ofText? text).getD table

/-- The table after changes one after another, of which the first finds it empty. -/
def afterEdits (edits : List Edit) : RenameTable :=
  edits.foldl edit empty

-----------------------------------------------------------------------------------------
-- Symbols in force
-----------------------------------------------------------------------------------------

/-- What a change means for one canonical name. -/
inductive Edit.Effect
  /-- The name keeps what it has. -/
  | untouched
  /-- The name has no symbol any more. -/
  | removed
  /-- The name has a symbol from now on. -/
  | written (symbol : String)
  /-- The name becomes its own symbol if it has none, not even an empty one. -/
  | seeded

/-- What a name has after a change, given what it had before. -/
def Edit.Effect.apply (name : String) (held : Option String) : Effect → Option String
  | .untouched => held
  | .removed => none
  | .written symbol => some symbol
  | .seeded => held.or (some name)

/-- What a new table means for a name: the symbol it has there, if any, and nothing from before.
-/
def Edit.Effect.ofSymbol? (symbol? : Option String) : Effect :=
  symbol?.elim .removed .written

/-- What a change means for a name. Of entries in a list the last one counts, and of the members
of an object the one that prevails.
-/
def Edit.effect (name : String) : Edit → Effect
  | .insert reference symbol =>
      if canonical reference = name then .written symbol else .untouched
  | .erase reference => if canonical reference = name then .removed else .untouched
  | .seed formula options =>
      if name ∈ detectReferences formula options then .seeded else .untouched
  | .rebuild entries =>
      .ofSymbol? (lastSymbol? (fun reference => canonical reference == name) entries)
  | .load text =>
      match entriesOf? text with
      | none => .untouched
      | some entries => .ofSymbol? (prevailing? name entries)

/-- The symbol that is in force for a name after changes, of which the latest comes first: the
symbol that was written last and not removed since.
-/
def Edit.inForce? (name : String) : List Edit → Option String
  | [] => none
  | edit :: earlier => (edit.effect name).apply name (inForce? name earlier)

theorem Edit.Effect.apply_ofSymbol? (name : String) (held symbol? : Option String)
    : (Effect.ofSymbol? symbol?).apply name held = symbol? := by
  cases symbol? <;> rfl

/-- A change does to the entry of a name what it means for the name. -/
theorem getElem?_edit (table : RenameTable) (change : Edit) (name : String)
    : (table.edit change).symbols[name]?
        = (change.effect name).apply name table.symbols[name]? := by
  cases change with
  | insert reference symbol =>
      simp only [edit, insert, Std.ExtTreeMap.getElem?_insert, Std.compare_eq_iff_eq, Edit.effect]
      split <;> rfl
  | erase reference =>
      simp only [edit, erase, Std.ExtTreeMap.getElem?_erase, Std.compare_eq_iff_eq, Edit.effect]
      split <;> rfl
  | seed formula options =>
      simp only [edit, getElem?_seed, Edit.effect]
      split
      · rfl
      · exact Option.or_none
  | rebuild entries =>
      rw [edit, getElem?_ofList, Edit.effect, Edit.Effect.apply_ofSymbol?]
  | load text =>
      rw [edit, ofText?_eq, Edit.effect]
      cases entriesOf? text with
      | none => rfl
      | some entries =>
          simp only [Option.map_some, Option.getD_some, getElem?_ofEntries,
            Edit.Effect.apply_ofSymbol?]

theorem getElem?_afterEdits (edits : List Edit) (name : String)
    : (afterEdits edits).symbols[name]? = Edit.inForce? name edits.reverse := by
  rw [afterEdits, List.foldl_eq_foldr_reverse]
  induction edits.reverse with
  | nil => exact Std.ExtTreeMap.getElem?_empty
  | cons change earlier ih => rw [List.foldr_cons, getElem?_edit, ih, Edit.inForce?]

-----------------------------------------------------------------------------------------
-- Canonical names
-----------------------------------------------------------------------------------------

theorem canonical_canonical (reference : String)
    : canonical (canonical reference) = canonical reference :=
  Text.upperCase_upperCase reference

theorem canonical_of_lastSymbol? {name symbol : String} {entries : List (String × String)}
    (last : lastSymbol? (fun reference => canonical reference == name) entries = some symbol)
    : canonical name = name := by
  obtain ⟨entry, found, _⟩ := Option.map_eq_some_iff.mp last
  have same := (List.mem_filter.mp (List.mem_of_getLast? found)).2
  rw [← eq_of_beq same, canonical_canonical]

theorem canonical_of_prevailing? {name symbol : String} {entries : List (String × String)}
    (prevails : prevailing? name entries = some symbol)
    : canonical name = name := by
  obtain ⟨greatest, found, _⟩ := Option.bind_eq_some_iff.mp prevails
  have member := mem_sortNames.mp (List.mem_of_getLast? found)
  rw [← eq_of_beq (List.mem_filter.mp member).2, canonical_canonical]

/-- A change writes only under a canonical name. -/
theorem canonical_or_held {change : Edit} {name symbol : String} {held : Option String}
    (found : (change.effect name).apply name held = some symbol)
    : canonical name = name ∨ held = some symbol := by
  cases change with
  | insert reference written =>
      rw [Edit.effect] at found
      split at found
      · rename_i same
        left
        rw [← same, canonical_canonical]
      · exact Or.inr found
  | erase reference =>
      rw [Edit.effect] at found
      split at found
      · cases found
      · exact Or.inr found
  | seed formula options =>
      rw [Edit.effect] at found
      split at found
      · rename_i detected
        exact Or.inl (upperCase_of_mem_detectReferences detected)
      · exact Or.inr found
  | rebuild entries =>
      rw [Edit.effect, Edit.Effect.apply_ofSymbol?] at found
      exact Or.inl (canonical_of_lastSymbol? found)
  | load text =>
      rw [Edit.effect] at found
      split at found
      · exact Or.inr found
      · rw [Edit.Effect.apply_ofSymbol?] at found
        exact Or.inl (canonical_of_prevailing? found)

theorem canonical_of_inForce? {name symbol : String} {history : List Edit}
    (found : Edit.inForce? name history = some symbol)
    : canonical name = name := by
  induction history with
  | nil => cases found
  | cons change earlier ih =>
      rw [Edit.inForce?] at found
      exact (canonical_or_held found).elim id ih

theorem canonical_of_mem_afterEdits {edits : List Edit} {name : String}
    (member : name ∈ (afterEdits edits).symbols)
    : canonical name = name := by
  obtain ⟨symbol, entry⟩ := Option.isSome_iff_exists.mp
    (Std.ExtTreeMap.mem_iff_isSome_getElem?.mp member)
  rw [getElem?_afterEdits] at entry
  exact canonical_of_inForce? entry

-----------------------------------------------------------------------------------------
-- Tables as finite maps
-----------------------------------------------------------------------------------------

/-- A table stands for a finite map from canonical names to symbols. References are looked up in
upper case, and an empty symbol shows nothing.
-/
structure Represents (table : RenameTable) (symbol? : String → Option String) : Prop where
  canonical_keys : ∀ name : String, name ∈ table.symbols → canonical name = name
  entries : ∀ name : String, table.symbols[name]? = symbol? name
  get : ∀ reference,
    table.get? reference = (symbol? (canonical reference)).filter fun symbol => !symbol.isEmpty
  resolve : ∀ reference,
    table.resolve reference
      = ((symbol? (canonical reference)).filter fun symbol => !symbol.isEmpty).getD
          (canonical reference)

/-- The table after any changes stands for the symbols in force. Names that have been entered
from a formula are there to stay, and it does not matter which of two formulas came first.
-/
theorem afterEdits_represents (edits : List Edit)
    : (afterEdits edits).Represents (fun name => Edit.inForce? name edits.reverse)
      ∧ (∀ formula options other,
          ((afterEdits edits).seed formula options).missing formula other = []
          ∧ ((afterEdits edits).seed formula options).seed formula other
              = (afterEdits edits).seed formula options)
      ∧ ∀ first second options other,
          ((afterEdits edits).seed first options).seed second other
            = ((afterEdits edits).seed second other).seed first options := by
  have get : ∀ reference, (afterEdits edits).get? reference
      = (Edit.inForce? (canonical reference) edits.reverse).filter fun symbol =>
          !symbol.isEmpty := by
    intro reference
    rw [get?, stored?, getElem?_afterEdits]
  refine ⟨⟨fun _ => canonical_of_mem_afterEdits, getElem?_afterEdits edits, get, ?_⟩, ?_, ?_⟩
  · intro reference
    rw [resolve, get]
  · intro formula options other
    exact ⟨missing_seed _ formula options other, seed_seed _ formula options other⟩
  · exact seed_comm (afterEdits edits)

end FormulaLatex.RenameTable
