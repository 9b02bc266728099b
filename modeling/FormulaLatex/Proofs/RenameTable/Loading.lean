import FormulaLatex.Proofs.RenameTable.Saving

/-! Loading a rename table. The order of the members of an object does not matter, as long as those
with one and the same key stay in order: of the spellings of a name the greatest counts, wherever it
stands.
-/

namespace FormulaLatex.RenameTable

/-- Whether entries are the others in a different order, where those with one key stay in order. -/
structure Reorders (entries other : List (String × String)) : Prop where
  perm : other.Perm entries
  keeps : ∀ key,
    other.filter (fun entry => entry.1 == key) = entries.filter (fun entry => entry.1 == key)

/-- Two entries that follow each other may change places if their keys differ. -/
theorem Reorders.swap {before after : List (String × String)} {entry next : String × String}
    (differ : entry.1 ≠ next.1)
    : Reorders (before ++ entry :: next :: after) (before ++ next :: entry :: after) := by
  refine ⟨(List.Perm.swap entry next after).append_left before, fun key => ?_⟩
  simp only [List.filter_append, List.filter_cons, beq_iff_eq]
  by_cases first : entry.1 = key
  · have second : next.1 ≠ key := fun same => differ (first.trans same.symm)
    simp only [if_pos first, if_neg second]
  · simp only [if_neg first]

/-- Whether a symbol prevails for a name: its key is the greatest of those that spell the name, and
no later entry has the same key.
-/
def Prevails (entries : List (String × String)) (name symbol : String) : Prop :=
  ∃ before key after,
    entries = before ++ (key, symbol) :: after
    ∧ canonical key = name
    ∧ (∀ entry ∈ after, entry.1 ≠ key)
    ∧ ∀ entry ∈ entries, canonical entry.1 = name → entry.1 ≤ key

/-- The last of ascending names is the greatest. -/
theorem greatest_of_getLast?_sortNames {names : List String} {greatest : String}
    (last : (sortNames names).getLast? = some greatest)
    : greatest ∈ names ∧ ∀ name ∈ names, name ≤ greatest := by
  refine ⟨mem_sortNames.mp (List.mem_of_getLast? last), fun name member => ?_⟩
  obtain ⟨before, sorted⟩ := List.getLast?_eq_some_iff.mp last
  have ascending := ascending_sortNames names
  rw [sorted] at ascending
  rw [← mem_sortNames, sorted] at member
  rcases List.mem_append.mp member with earlier | same
  · have precedes := (List.pairwise_append.mp ascending).2.2 name earlier
    exact Std.le_of_lt (precedes greatest List.mem_cons_self)
  · obtain rfl := List.mem_singleton.mp same
    exact String.le_refl name

theorem exists_getLast?_sortNames {names : List String} {name : String} (member : name ∈ names)
    : ∃ greatest, (sortNames names).getLast? = some greatest := by
  refine Option.ne_none_iff_exists'.mp fun none => ?_
  rw [← mem_sortNames, List.getLast?_eq_none_iff.mp none] at member
  cases member

theorem getLast?_sortNames {names : List String} {greatest : String}
    : (sortNames names).getLast? = some greatest
        ↔ greatest ∈ names ∧ ∀ name ∈ names, name ≤ greatest := by
  refine ⟨greatest_of_getLast?_sortNames, fun ⟨member, bound⟩ => ?_⟩
  obtain ⟨other, last⟩ := exists_getLast?_sortNames member
  obtain ⟨otherMember, otherBound⟩ := greatest_of_getLast?_sortNames last
  rw [last, String.le_antisymm (bound other otherMember) (otherBound greatest member)]

-----------------------------------------------------------------------------------------
-- The symbol of a name
-----------------------------------------------------------------------------------------

variable {entries other : List (String × String)} {name symbol : String}

theorem mem_spellings {spelling : String}
    : spelling ∈ (entries.map Prod.fst).filter (fun spelling => canonical spelling == name)
        ↔ (∃ entry ∈ entries, entry.1 = spelling) ∧ canonical spelling = name := by
  rw [List.mem_filter, List.mem_map, beq_iff_eq]

/-- The symbol that is kept for a name is the one that prevails. -/
theorem prevailing?_eq_some_iff
    : prevailing? name entries = some symbol ↔ Prevails entries name symbol := by
  simp only [prevailing?, Option.bind_eq_bind, Option.bind_eq_some_iff, getLast?_sortNames,
    mem_spellings, lastSymbol?_eq_some_iff, beq_iff_eq, beq_eq_false_iff_ne]
  constructor
  · rintro ⟨_, ⟨⟨_, spells⟩, bound⟩, before, key, after, split, rfl, latest⟩
    refine ⟨before, key, after, split, spells, latest, fun entry member named => ?_⟩
    exact bound entry.1 ⟨⟨entry, member, rfl⟩, named⟩
  · rintro ⟨before, key, after, split, spells, latest, bound⟩
    refine ⟨key, ⟨⟨⟨(key, symbol), by simp [split], rfl⟩, spells⟩, ?_⟩,
      before, key, after, split, rfl, latest⟩
    rintro _ ⟨⟨entry, member, rfl⟩, named⟩
    exact bound entry member named

/-- A symbol prevails for every name that a key spells. -/
theorem exists_prevails {key : String} (member : key ∈ entries.map Prod.fst)
    : ∃ symbol, Prevails entries (canonical key) symbol := by
  obtain ⟨greatest, last⟩ := exists_getLast?_sortNames <|
    (@mem_spellings entries (canonical key) key).mpr ⟨List.mem_map.mp member, rfl⟩
  obtain ⟨⟨entry, inEntries, same⟩, _⟩ := mem_spellings.mp (greatest_of_getLast?_sortNames last).1
  cases found : lastSymbol? (· == greatest) entries with
  | none =>
      have differs := lastSymbol?_eq_none_iff.mp found entry inEntries
      simp [same] at differs
  | some symbol =>
      refine ⟨symbol, prevailing?_eq_some_iff.mp ?_⟩
      simp only [prevailing?, last, Option.bind_eq_bind, Option.bind_some, found]

theorem prevailing?_reorders (reorders : Reorders entries other) (name : String)
    : prevailing? name other = prevailing? name entries := by
  have keys := (reorders.perm.map Prod.fst).filter fun spelling => canonical spelling == name
  have greatest :
      (sortNames ((other.map Prod.fst).filter fun key => canonical key == name)).getLast?
        = (sortNames ((entries.map Prod.fst).filter fun key => canonical key == name)).getLast? := by
    refine Option.ext fun key => ?_
    simp only [getLast?_sortNames, keys.mem_iff]
  simp only [prevailing?, greatest, lastSymbol?, reorders.keeps]

/-- The table of an object does not depend on the order of its members. -/
theorem ofEntries_reorders (reorders : Reorders entries other)
    : ofEntries other = ofEntries entries := by
  refine ext_symbols fun name => ?_
  rw [getElem?_ofEntries, getElem?_ofEntries, prevailing?_reorders reorders]

theorem ofFile_toUTF8 {text : String} {table : RenameTable} (read : ofText? text = some table)
    : ofFile (some text.toUTF8) = .ok table := by
  simp only [ofFile, fromUTF8?_toUTF8, read]

/-- Two texts of one object, up to the order of its members, describe the same table. Under each
canonical name it holds the symbol that prevails, and there is one for every key of the object.
-/
theorem loading_ignores_order {text reordered : String}
    (lists : entriesOf? text = some entries) (relists : entriesOf? reordered = some other)
    (reorders : Reorders entries other)
    : ∃ table,
        (ofText? text = some table ∧ ofText? reordered = some table)
        ∧ (ofFile (some text.toUTF8) = .ok table ∧ ofFile (some reordered.toUTF8) = .ok table)
        ∧ (∀ name symbol : String,
          table.symbols[name]? = some symbol ↔ Prevails entries name symbol)
        ∧ ∀ key ∈ entries.map Prod.fst, ∃ symbol,
          Prevails entries (canonical key) symbol
          ∧ table.get? key = if symbol = "" then none else some symbol := by
  have read : ofText? text = some (ofEntries entries) := by
    rw [ofText?_eq, lists]
    rfl
  have reread : ofText? reordered = some (ofEntries entries) := by
    rw [ofText?_eq, relists, Option.map_some, ofEntries_reorders reorders]
  have held (name symbol : String)
      : (ofEntries entries).symbols[name]? = some symbol ↔ Prevails entries name symbol := by
    rw [getElem?_ofEntries, prevailing?_eq_some_iff]
  refine ⟨ofEntries entries, ⟨read, reread⟩, ⟨ofFile_toUTF8 read, ofFile_toUTF8 reread⟩, held, ?_⟩
  intro key member
  obtain ⟨symbol, prevails⟩ := exists_prevails member
  exact ⟨symbol, prevails, get?_of_stored? ((held _ _).mpr prevails)⟩

/-- The greatest spelling of `A1` prevails, and the later of its two symbols, wherever the other
spelling stands.
-/
theorem loading_ignores_order_spellings
    : let text := "\x7b\"a1\":\"x\",\"A1\":\"y\",\"a1\":\"z\"\x7d"
      let reordered := "\x7b\"a1\":\"x\",\"a1\":\"z\",\"A1\":\"y\"\x7d"
      ∃ table,
        ofText? text = some table
        ∧ ofText? reordered = some table
        ∧ table.get? "A1" = some "z" := by
  intro text reordered
  have lists : entriesOf? text = some [("a1", "x"), ("A1", "y"), ("a1", "z")] := by
    decide +kernel
  have relists : entriesOf? reordered = some [("a1", "x"), ("a1", "z"), ("A1", "y")] := by
    decide +kernel
  have reorders := @Reorders.swap [("a1", "x")] [] ("A1", "y") ("a1", "z") (by decide)
  obtain ⟨table, ⟨read, reread⟩, _, held, shown⟩ := loading_ignores_order lists relists reorders
  have spells : canonical "a1" = "A1" ∧ canonical "A1" = "A1" := by
    decide +kernel
  have greatest : Prevails [("a1", "x"), ("A1", "y"), ("a1", "z")] "A1" "z" := by
    refine ⟨[("a1", "x"), ("A1", "y")], "a1", [], rfl, spells.1, nofun, ?_⟩
    intro entry member _
    revert entry
    decide
  obtain ⟨symbol, prevails, get⟩ := shown "A1" (by simp)
  rw [spells.2] at prevails
  have same := (held "A1" "z").mpr greatest
  rw [(held "A1" symbol).mpr prevails, Option.some_inj] at same
  subst same
  exact ⟨table, read, reread, get⟩

end FormulaLatex.RenameTable
