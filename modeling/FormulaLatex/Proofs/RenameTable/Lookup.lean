import Mathlib.Data.List.Sort
import FormulaLatex.Proofs.Token.References
import FormulaLatex.RenameTable.Json

/-! What a rename table holds for a name after it has been changed: of entries that are inserted
the last one counts, a seed fills in what is absent, and of the members of an object the one with
the greatest spelling prevails.
-/

namespace FormulaLatex.RenameTable

open Text

/-- A table is what it holds for each key. -/
theorem ext_symbols {table other : RenameTable}
    (same : ∀ name : String, table.symbols[name]? = other.symbols[name]?)
    : table = other := by
  cases table
  cases other
  exact congrArg RenameTable.mk (Std.ExtTreeMap.ext_getElem? same)

/-- What is shown for a name is its canonical form or the symbol of its entry. -/
theorem resolve_eq_or_mem (table : RenameTable) (name : String)
    : table.resolve name = canonical name
        ∨ (canonical name, table.resolve name) ∈ table.toList := by
  rw [resolve]
  cases shown : table.get? name with
  | none => exact .inl rfl
  | some symbol =>
      have stored : table.stored? name = some symbol := (Option.filter_eq_some_iff.mp shown).1
      exact .inr (Std.ExtTreeMap.mem_toList_iff_getElem?_eq_some.mpr stored)

theorem get?_of_stored? {table : RenameTable} {reference symbol : String}
    (stored : table.stored? reference = some symbol)
    : table.get? reference = if symbol = "" then none else some symbol := by
  rw [get?, stored, Option.filter_some]
  split <;> simp_all

theorem resolve_of_stored? {table : RenameTable} {reference symbol : String}
    (stored : table.stored? reference = some symbol)
    : table.resolve reference = if symbol = "" then canonical reference else symbol := by
  rw [resolve, get?_of_stored? stored]
  split <;> rfl

-----------------------------------------------------------------------------------------
-- Insertions
-----------------------------------------------------------------------------------------

/-- The symbol of the last entry whose reference passes a test. -/
def lastSymbol? (test : String → Bool) (entries : List (String × String)) : Option String :=
  (entries.filter fun entry => test entry.1).getLast?.map Prod.snd

theorem lastSymbol?_cons (test : String → Bool) (entry : String × String)
    (entries : List (String × String))
    : lastSymbol? test (entry :: entries)
        = (lastSymbol? test entries).or (if test entry.1 then some entry.2 else none) := by
  simp only [lastSymbol?, List.filter_cons]
  split
  · simp only [List.getLast?_cons, Option.map_some, Option.or_some]
    cases (entries.filter fun entry => test entry.1).getLast? <;> rfl
  · exact Option.or_none.symm

theorem lastSymbol?_eq_none_iff {test : String → Bool} {entries : List (String × String)}
    : lastSymbol? test entries = none ↔ ∀ entry ∈ entries, test entry.1 = false := by
  rw [lastSymbol?, Option.map_eq_none_iff, List.getLast?_eq_none_iff, List.filter_eq_nil_iff]
  simp only [Bool.not_eq_true]

/-- The last entry that passes a test has none after it that does. -/
theorem lastSymbol?_eq_some_iff {test : String → Bool} {entries : List (String × String)}
    {symbol : String}
    : lastSymbol? test entries = some symbol
        ↔ ∃ before key after,
            entries = before ++ (key, symbol) :: after
            ∧ test key = true
            ∧ ∀ entry ∈ after, test entry.1 = false := by
  rw [lastSymbol?, List.getLast?_filter, Option.map_eq_some_iff]
  simp only [List.find?_eq_some_iff_append, Bool.not_eq_true']
  constructor
  · rintro ⟨⟨key, _⟩, ⟨passes, after, before, split, fail⟩, rfl⟩
    refine ⟨before.reverse, key, after.reverse, ?_, passes, fun entry member => ?_⟩
    · simpa using congrArg List.reverse split
    · exact fail entry (List.mem_reverse.mp member)
  · rintro ⟨before, key, after, rfl, passes, fail⟩
    refine ⟨(key, symbol), ⟨passes, after.reverse, before.reverse, by simp, ?_⟩, rfl⟩
    exact fun entry member => fail entry (List.mem_reverse.mp member)

/-- Where at most one entry passes a test, the order of the entries does not matter. -/
theorem lastSymbol?_perm {test : String → Bool} {entries other : List (String × String)}
    (perm : other.Perm entries)
    (single : entries.Pairwise fun entry later => ¬ (test entry.1 = true ∧ test later.1 = true))
    : lastSymbol? test other = lastSymbol? test entries := by
  have passing := perm.filter fun entry => test entry.1
  have apart := single.filter fun entry => test entry.1
  have pass : ∀ entry ∈ entries.filter fun entry => test entry.1, test entry.1 = true :=
    fun entry member => (List.mem_filter.mp member).2
  rw [lastSymbol?, lastSymbol?]
  generalize entries.filter _ = kept at *
  cases kept with
  | nil => rw [passing.eq_nil]
  | cons entry rest =>
      cases rest with
      | nil => rw [List.perm_singleton.mp passing]
      | cons later rest =>
          have both := (List.pairwise_cons.mp apart).1 later List.mem_cons_self
          exact absurd ⟨pass entry (by simp), pass later (by simp)⟩ both

theorem lastSymbol?_identities (names : List String) (name : String)
    : lastSymbol? (· == name) (names.map fun name => (name, name))
        = if name ∈ names then some name else none := by
  induction names with
  | nil => rfl
  | cons head rest ih =>
      simp only [List.map_cons, lastSymbol?_cons, ih, beq_iff_eq, List.mem_cons]
      by_cases later : name ∈ rest
      · simp [later]
      · by_cases same : head = name
        · simp [later, same]
        · simp [later, same, Ne.symm same]

/-- Entries that are inserted one after another leave the last symbol under each key. -/
theorem getElem?_foldl_insert (key : String → String) (entries : List (String × String))
    (symbols : Std.ExtTreeMap String String) (name : String)
    : (entries.foldl (fun symbols entry => symbols.insert (key entry.1) entry.2) symbols)[name]?
        = (lastSymbol? (fun reference => key reference == name) entries).or symbols[name]? := by
  induction entries generalizing symbols with
  | nil => rfl
  | cons entry rest ih =>
      rw [List.foldl_cons, ih, lastSymbol?_cons, Option.or_assoc]
      simp only [Std.ExtTreeMap.getElem?_insert, Std.compare_eq_iff_eq, beq_iff_eq]
      by_cases same : key entry.1 = name <;> simp [same]

theorem symbols_insertAll (table : RenameTable) (entries : List (String × String))
    : (table.insertAll entries).symbols
        = entries.foldl (fun symbols entry => symbols.insert (canonical entry.1) entry.2)
            table.symbols := by
  induction entries generalizing table with
  | nil => rfl
  | cons entry rest ih => exact ih _

theorem getElem?_insertAll (table : RenameTable) (entries : List (String × String))
    (name : String)
    : (table.insertAll entries).symbols[name]?
        = (lastSymbol? (fun reference => canonical reference == name) entries).or
            table.symbols[name]? := by
  rw [symbols_insertAll]
  exact getElem?_foldl_insert canonical entries table.symbols name

theorem stored?_insertAll (table : RenameTable) (entries : List (String × String))
    (reference : String)
    : (table.insertAll entries).stored? reference
        = (lastSymbol? (fun other => canonical other == canonical reference) entries).or
            (table.stored? reference) :=
  getElem?_insertAll table entries (canonical reference)

/-- Entries for different names can be inserted in any order. -/
theorem insertAll_perm (table : RenameTable) {entries other : List (String × String)}
    (perm : other.Perm entries)
    (distinct : entries.Pairwise fun entry later => canonical entry.1 ≠ canonical later.1)
    : table.insertAll other = table.insertAll entries := by
  refine ext_symbols fun name => ?_
  have single := distinct.imp fun {entry later} different
      (both : (canonical entry.1 == name) = true ∧ (canonical later.1 == name) = true) =>
    different ((eq_of_beq both.1).trans (eq_of_beq both.2).symm)
  rw [getElem?_insertAll, getElem?_insertAll, lastSymbol?_perm perm single]

theorem getElem?_ofList (entries : List (String × String)) (name : String)
    : (ofList entries).symbols[name]?
        = lastSymbol? (fun reference => canonical reference == name) entries := by
  rw [ofList, getElem?_insertAll, empty, Std.ExtTreeMap.getElem?_empty, Option.or_none]

-----------------------------------------------------------------------------------------
-- Seeding
-----------------------------------------------------------------------------------------

theorem mem_missing {table : RenameTable} {name formula : String} {options : TokenizerOptions}
    : name ∈ table.missing formula options
        ↔ name ∈ detectReferences formula options ∧ table.symbols[name]? = none := by
  simp only [missing, List.mem_filter, Bool.not_eq_true',
    Std.ExtTreeMap.contains_eq_isSome_getElem?, Option.isSome_eq_false_iff,
    Option.isNone_iff_eq_none]

/-- Seeding leaves every entry as it is and fills in the names of the formula that have none. -/
theorem getElem?_seed (table : RenameTable) (formula : String) (options : TokenizerOptions)
    (name : String)
    : (table.seed formula options).symbols[name]?
        = table.symbols[name]?.or
            (if name ∈ detectReferences formula options then some name else none) := by
  have filled := getElem?_foldl_insert id
    ((table.missing formula options).map fun name => (name, name)) table.symbols name
  simp only [List.foldl_map, id] at filled
  rw [seed, filled, lastSymbol?_identities]
  simp only [mem_missing]
  cases entry : table.symbols[name]? with
  | none => simp
  | some symbol => simp

/-- A formula that has been seen leaves no name to be filled in, under any options. -/
theorem missing_seed (table : RenameTable) (formula : String)
    (options other : TokenizerOptions)
    : (table.seed formula options).missing formula other = [] := by
  refine List.eq_nil_iff_forall_not_mem.mpr fun name member => ?_
  obtain ⟨detected, absent⟩ := mem_missing.mp member
  rw [detectReferences_options formula other options] at detected
  simp [getElem?_seed, detected] at absent

theorem seed_seed (table : RenameTable) (formula : String) (options other : TokenizerOptions)
    : (table.seed formula options).seed formula other = table.seed formula options := by
  rw [seed, missing_seed]
  rfl

/-- Two formulas may be seen in either order. -/
theorem seed_comm (table : RenameTable) (first second : String)
    (options other : TokenizerOptions)
    : (table.seed first options).seed second other
        = (table.seed second other).seed first options := by
  refine ext_symbols fun name => ?_
  simp only [getElem?_seed]
  cases table.symbols[name]? with
  | some symbol => rfl
  | none =>
      by_cases inFirst : name ∈ detectReferences first options <;>
        by_cases inSecond : name ∈ detectReferences second other <;>
        simp [inFirst, inSecond]

-----------------------------------------------------------------------------------------
-- Loading
-----------------------------------------------------------------------------------------

/-- The entries that a JSON text lists, if it is an object of strings. -/
def entriesOf? (text : String) : Option (List (String × String)) :=
  match Json.ofText? text with
  | some (.object members) => strings? members
  | _ => none

/-- The table of the entries that an object lists. -/
def ofEntries (entries : List (String × String)) : RenameTable :=
  ofList (entries.foldl (fun written entry => written.insert entry.1 entry.2)
    (∅ : Std.ExtTreeMap String String)).toList

theorem ofText?_eq (text : String) : ofText? text = (entriesOf? text).map ofEntries := by
  rw [ofText?, entriesOf?]
  cases Json.ofText? text with
  | none => rfl
  | some value =>
      cases value with
      | object members =>
          simp only [Option.bind_eq_bind, Option.bind_some, ofJson?]
          cases strings? members <;> rfl
      | _ => rfl

/-- The symbol for a name among the entries of an object: that of the greatest spelling of the
name, and of the last entry with this spelling.
-/
def prevailing? (name : String) (entries : List (String × String)) : Option String := do
  let spellings := (entries.map Prod.fst).filter fun spelling => canonical spelling == name
  let greatest ← (sortNames spellings).getLast?
  lastSymbol? (· == greatest) entries

/-- The keys of a map are an ascending listing of themselves. -/
theorem map_fst_filter_toList (test : String → Bool) (symbols : Std.ExtTreeMap String String)
    {names : List String} (same : ∀ name, name ∈ symbols ↔ name ∈ names)
    : (symbols.toList.filter fun entry => test entry.1).map Prod.fst
        = sortNames (names.filter test) := by
  have ascending : (symbols.toList.map Prod.fst).Pairwise (· < ·) := by
    rw [List.pairwise_map]
    refine Std.ExtTreeMap.ordered_keys_toList.imp fun before => ?_
    exact compareOfLessAndEq_eq_lt.mp before
  have irreflexive : Std.Irrefl fun name other : String => name < other := ⟨String.lt_irrefl⟩
  have antisymmetric : Std.Antisymm fun name other : String => name < other :=
    ⟨fun _ _ before after => absurd after (String.lt_asymm before)⟩
  have keys := (ascending.filter test).eq_of_mem_iff (ascending_sortNames (names.filter test))
  rw [List.filter_map] at keys
  refine keys fun name => ?_
  simp only [List.mem_filter, mem_sortNames, ← same, Std.ExtTreeMap.mem_iff_isSome_getElem?,
    List.mem_map, Option.isSome_iff_exists, Prod.exists, Function.comp,
    Std.ExtTreeMap.mem_toList_iff_getElem?_eq_some]
  constructor
  · rintro ⟨_, symbol, ⟨entry, passes⟩, rfl⟩
    exact ⟨⟨symbol, entry⟩, passes⟩
  · rintro ⟨⟨symbol, entry⟩, passes⟩
    exact ⟨name, symbol, ⟨entry, passes⟩, rfl⟩

theorem mem_foldl_insert (entries : List (String × String)) (name : String)
    : name ∈ entries.foldl (fun written entry => written.insert entry.1 entry.2)
          (∅ : Std.ExtTreeMap String String)
        ↔ name ∈ entries.map Prod.fst := by
  have held := getElem?_foldl_insert id entries ∅ name
  simp only [id, Std.ExtTreeMap.getElem?_empty, Option.or_none] at held
  rw [Std.ExtTreeMap.mem_iff_isSome_getElem?, held, lastSymbol?, Option.isSome_map,
    List.getLast?_isSome]
  simp [List.filter_eq_nil_iff]

/-- Loading keeps the prevailing symbol of each name. -/
theorem getElem?_ofEntries (entries : List (String × String)) (name : String)
    : (ofEntries entries).symbols[name]? = prevailing? name entries := by
  have held := getElem?_foldl_insert id entries ∅
  simp only [id, Std.ExtTreeMap.getElem?_empty, Option.or_none] at held
  have keys := map_fst_filter_toList (fun spelling => canonical spelling == name) _
    (mem_foldl_insert entries)
  rw [ofEntries, getElem?_ofList, lastSymbol?, prevailing?, ← keys, List.getLast?_map]
  cases last : (List.filter _ _).getLast? with
  | none => rfl
  | some entry =>
      obtain ⟨spelling, symbol⟩ := entry
      have member := (List.mem_filter.mp (List.mem_of_getLast? last)).1
      rw [Std.ExtTreeMap.mem_toList_iff_getElem?_eq_some, held] at member
      exact member.symm

end FormulaLatex.RenameTable
