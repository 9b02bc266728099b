import FormulaLatex.Proofs.CommandLine.Answers
import FormulaLatex.Proofs.RenameTable.Lookup

/-! Renames on the command line. They take precedence over those of the file, whatever the case in
which a cell is spelled in either place, and of several for one cell the last counts.
-/

namespace FormulaLatex.CommandLine

open Text RenameTable

/-- Whether a value names a cell, by its canonical name, and a symbol for it. The cell stands before
the first equals sign, with or without white space around it, and all that follows is the symbol.
-/
def Sets (value name symbol : String) : Prop :=
  ∃ before,
    value.toList = before ++ '=' :: symbol.toList
    ∧ '=' ∉ before
    ∧ canonical (String.ofList (trim before)) = name

/-- Values that are read as the renames among settings. Each ends one of the words. -/
structure ValuesIn (words : List String) (given : List Given) (values : List String) : Prop where
  parses : values.map parseRename = (renamesOf given).map .ok
  written : ∀ value ∈ values, ∃ word ∈ words, value.toList <:+ word.toList

/-- A command line of a conversion, with its settings, its formula, and the values of its renames in
order.
-/
structure Conversion (words : List String) (given : List Given) (formula : String)
    (values : List String)
    : Prop extends ValuesIn words given values where
  wording : Subcommand.convert.Wording words given (some formula)
  once : Once given

/-- The settings without the renames. -/
def apartFromRenames (given : List Given) : List Given :=
  given.filter fun setting => setting.rename?.isNone

variable {words : List String} {given other : List Given} {values : List String}
  {value name symbol reference : String}

-----------------------------------------------------------------------------------------
-- Values
-----------------------------------------------------------------------------------------

/-- A value that is read is split at its first equals sign. -/
theorem exists_of_parseRename (parsed : parseRename value = .ok (reference, symbol))
    : ∃ before,
        value.toList = before ++ '=' :: symbol.toList
        ∧ '=' ∉ before
        ∧ reference = String.ofList (trim before) := by
  by_cases present : '=' ∈ value.toList
  · obtain ⟨before, after, split, first⟩ := List.eq_append_cons_of_mem present
    rw [parseRename, split, splitAtEquals?_append first] at parsed
    dsimp only at parsed
    split at parsed
    · cases parsed
    · cases parsed
      exact ⟨before, by rw [String.toList_ofList, split], first, rfl⟩
  · rw [parseRename, splitAtEquals?_eq_none present] at parsed
    cases parsed

/-- A value that is read sets what it is read as, and nothing else. -/
theorem sets_iff (parsed : parseRename value = .ok (reference, symbol)) {next : String}
    : Sets value name next ↔ canonical reference = name ∧ symbol = next := by
  obtain ⟨before, split, first, rfl⟩ := exists_of_parseRename parsed
  constructor
  · rintro ⟨early, otherSplit, otherFirst, rfl⟩
    have same := splitAtEquals?_append otherFirst next.toList
    rw [← otherSplit, split, splitAtEquals?_append first] at same
    obtain ⟨rfl, rest⟩ := Prod.mk.inj (Option.some.inj same)
    exact ⟨rfl, String.toList_inj.mp rest⟩
  · rintro ⟨rfl, rfl⟩
    exact ⟨before, split, first, rfl⟩

section Values

variable {entries : List (String × String)} (parses : values.map parseRename = entries.map .ok)
include parses

theorem exists_sets_of_mem {entry : String × String} (member : entry ∈ entries)
    : ∃ value ∈ values, Sets value (canonical entry.1) entry.2 := by
  have listed : .ok entry ∈ values.map parseRename := parses ▸ List.mem_map_of_mem member
  obtain ⟨value, inValues, parsed⟩ := List.mem_map.mp listed
  exact ⟨value, inValues, (sets_iff parsed).mpr ⟨rfl, rfl⟩⟩

/-- The last value for a cell has the symbol that counts. -/
theorem lastSymbol?_of_sets {front back : List String} (split : values = front ++ value :: back)
    (sets : Sets value name symbol) (last : ∀ later ∈ back, ∀ next, ¬ Sets later name next)
    : lastSymbol? (fun reference => canonical reference == name) entries = some symbol := by
  rw [split, List.map_append, List.map_cons] at parses
  obtain ⟨before, rest, rfl, _, parsesRest⟩ := List.map_eq_append_iff.mp parses.symm
  obtain ⟨⟨reference, written⟩, after, rfl, parsed, parsesAfter⟩ :=
    List.map_eq_cons_iff.mp parsesRest
  obtain ⟨rfl, rfl⟩ := (sets_iff parsed.symm).mp sets
  refine lastSymbol?_eq_some_iff.mpr ⟨before, reference, after, rfl, beq_self_eq_true _, ?_⟩
  intro entry member
  obtain ⟨later, inBack, laterSets⟩ := exists_sets_of_mem parsesAfter.symm member
  exact beq_eq_false_iff_ne.mpr fun same => last later inBack entry.2 (same ▸ laterSets)

theorem lastSymbol?_of_not_sets (unset : ∀ value ∈ values, ∀ symbol, ¬ Sets value name symbol)
    : lastSymbol? (fun reference => canonical reference == name) entries = none := by
  refine lastSymbol?_eq_none_iff.mpr fun entry member => ?_
  obtain ⟨value, inValues, sets⟩ := exists_sets_of_mem parses member
  exact beq_eq_false_iff_ne.mpr fun same => unset value inValues entry.2 (same ▸ sets)

theorem pairwise_canonical_of_values
    (distinct : values.Pairwise fun value later =>
      ∀ name symbol next, Sets value name symbol → ¬ Sets later name next)
    : entries.Pairwise fun entry later => canonical entry.1 ≠ canonical later.1 := by
  have parsed : (values.map parseRename).Pairwise fun result later => ∀ entry other,
      result = .ok entry → later = .ok other → canonical entry.1 ≠ canonical other.1 := by
    refine List.pairwise_map.mpr (distinct.imp fun apart entry other read otherRead same => ?_)
    exact apart _ _ _ ((sets_iff read).mpr ⟨rfl, rfl⟩) ((sets_iff otherRead).mpr ⟨same.symm, rfl⟩)
  rw [parses, List.pairwise_map] at parsed
  exact parsed.imp fun apart => apart _ _ rfl rfl

theorem perm_of_values {otherValues : List String} {others : List (String × String)}
    (otherParses : otherValues.map parseRename = others.map .ok) (perm : otherValues.Perm values)
    : others.Perm entries := by
  have read := (perm.map parseRename).filterMap Except.toOption
  rw [parses, otherParses] at read
  simpa [List.filterMap_map, Function.comp_def, Except.toOption] using read

end Values

-----------------------------------------------------------------------------------------
-- Settings apart from renames
-----------------------------------------------------------------------------------------

theorem findSome?_apartFromRenames {α : Type} {value? : Given → Option α}
    (ignores : ∀ reference symbol, value? (.rename reference symbol) = none)
    (given : List Given)
    : (apartFromRenames given).findSome? value? = given.findSome? value? := by
  have looked : (fun setting : Given => if setting.rename?.isNone then value? setting else none)
      = value? := by
    funext setting
    cases setting with
    | rename reference symbol => exact (ignores reference symbol).symm
    | _ => rfl
  rw [← List.head?_filterMap, ← List.head?_filterMap, apartFromRenames, List.filterMap_filter,
    looked]

theorem flag_mem_apartFromRenames {flag : Flag}
    : .flag flag ∈ apartFromRenames given ↔ .flag flag ∈ given := by
  simp [apartFromRenames]

theorem optionsOf_apartFromRenames (given : List Given)
    : optionsOf (apartFromRenames given) = optionsOf given := by
  have decimal := @findSome?_apartFromRenames _ Given.decimalStyle? (fun _ _ => rfl) given
  have separators := @findSome?_apartFromRenames _ Given.decimalSeparators? (fun _ _ => rfl) given
  have limit := @findSome?_apartFromRenames _ Given.maxDepth? (fun _ _ => rfl) given
  simp only [optionsOf, tokenizerOf, flag_mem_apartFromRenames, decimal, separators, limit]

theorem renameFileOf?_apartFromRenames (given : List Given)
    : renameFileOf? (apartFromRenames given) = renameFileOf? given :=
  findSome?_apartFromRenames (fun _ _ => rfl) given

theorem fileTable_apartFromRenames (content : String → Option ByteArray) (given : List Given)
    : fileTable content (apartFromRenames given) = fileTable content given := by
  rw [fileTable, fileTable, renameFileOf?_apartFromRenames]

/-- Once the table is there, renames make no difference to a conversion. -/
theorem convertFormula_apartFromRenames (formula : String) (table : RenameTable)
    (given : List Given)
    : convertFormula formula table (.ofGiven (apartFromRenames given) (some formula))
        = convertFormula formula table (.ofGiven given (some formula)) := by
  simp only [convertFormula_ofGiven, optionsOf_apartFromRenames, printed,
    flag_mem_apartFromRenames]

-----------------------------------------------------------------------------------------
-- Values on the command line
-----------------------------------------------------------------------------------------

theorem renamesOf_append (given more : List Given)
    : renamesOf (given ++ more) = renamesOf given ++ renamesOf more :=
  List.filterMap_append

theorem renamesOf_flags (flags : List Flag) : renamesOf (flags.map .flag) = [] := by
  simp [renamesOf]

theorem ValuesIn.none (words : List String) (absent : renamesOf given = [])
    : ValuesIn words given [] :=
  ⟨by rw [absent]; rfl, nofun⟩

theorem ValuesIn.append {more : List String} {moreValues : List String}
    (first : ValuesIn words given values) (second : ValuesIn more other moreValues)
    : ValuesIn (words ++ more) (given ++ other) (values ++ moreValues) := by
  refine ⟨?_, fun value member => ?_⟩
  · rw [renamesOf_append, List.map_append, List.map_append, first.parses, second.parses]
  · rcases List.mem_append.mp member with inFirst | inSecond
    · obtain ⟨word, present, ends⟩ := first.written value inFirst
      exact ⟨word, List.mem_append_left more present, ends⟩
    · obtain ⟨word, present, ends⟩ := second.written value inSecond
      exact ⟨word, List.mem_append_right words present, ends⟩

theorem exists_valuesIn_of_takes {option : ValueOption} {next : Given} {word : String}
    (takes : option.Takes value next) (flags : List Flag) (present : word ∈ words)
    (ends : value.toList <:+ word.toList)
    : ∃ values, ValuesIn words (flags.map .flag ++ [next]) values := by
  cases takes with
  | rename spelled first named =>
      refine ⟨[value], ?_, fun other member => ?_⟩
      · have read := parseRename_eq spelled first named
        rw [renamesOf_append, renamesOf_flags, List.map_singleton, read]
        rfl
      · rw [List.mem_singleton.mp member]
        exact ⟨word, present, ends⟩
  | _ => exact ⟨[], .none words (by simp [renamesOf])⟩

theorem exists_valuesIn_of_phrase {subcommand : Subcommand}
    (phrase : subcommand.Phrase words given)
    : ∃ values, ValuesIn words given values := by
  cases phrase with
  | flag has => exact ⟨[], .none _ rfl⟩
  | letters clustered nonempty => exact ⟨[], .none _ (renamesOf_flags _)⟩
  | @equals front flags _ value _ names takes =>
      refine exists_valuesIn_of_takes takes flags List.mem_cons_self ?_
      exact ⟨front ++ ['='], by simp⟩
  | apart names takes unhyphenated =>
      exact exists_valuesIn_of_takes takes _ (by simp) List.suffix_rfl
  | @attached letters flags letter _ value _ clustered has short takes nonempty noEquals =>
      refine exists_valuesIn_of_takes takes flags List.mem_cons_self ?_
      exact ⟨'-' :: (letters ++ [letter]), by simp⟩

theorem exists_valuesIn {subcommand : Subcommand} {formula? : Option String}
    (wording : subcommand.Wording words given formula?)
    : ∃ values, ValuesIn words given values := by
  induction wording with
  | nil => exact ⟨[], .none _ rfl⟩
  | settings first _ ih =>
      obtain ⟨early, earlyIn⟩ := exists_valuesIn_of_phrase first
      obtain ⟨late, lateIn⟩ := ih
      exact ⟨early ++ late, earlyIn.append lateIn⟩
  | @formula formula _ _ _ _ ih =>
      obtain ⟨values, valuesIn⟩ := ih
      have alone : ValuesIn [formula] [] [] := .none _ rfl
      exact ⟨values, alone.append valuesIn⟩
  | hyphens => exact ⟨[], .none _ rfl⟩
  | afterHyphens formula => exact ⟨[], .none _ rfl⟩

/-- Whatever the wording, the values of the renames stand on the command line. -/
theorem exists_conversion {formula : String}
    (wording : Subcommand.convert.Wording words given (some formula)) (once : Once given)
    : ∃ values, Conversion words given formula values := by
  obtain ⟨values, valuesIn⟩ := exists_valuesIn wording
  exact ⟨values, valuesIn, wording, once⟩

-----------------------------------------------------------------------------------------
-- Answers
-----------------------------------------------------------------------------------------

section Answers

variable {formula : String} {content : String → Option ByteArray} {fromFile : RenameTable}

/-- The table of a conversion has the renames in it, and the answer is given under the table. -/
theorem Conversion.answers (conversion : Conversion words given formula values)
    (loads : fileTable content given = .ok fromFile)
    : renameTable content (.ofGiven given (some formula))
          = .ok (fromFile.insertAll (renamesOf given))
      ∧ respond content ("convert" :: words)
          = convertFormula formula (fromFile.insertAll (renamesOf given))
              (.ofGiven given (some formula)) := by
  have table := renameTable_ofGiven loads (some formula)
  refine ⟨table, ?_⟩
  rw [respond_of_wording conversion.wording conversion.once rfl, run, table]

/-- Renames on the command line override those of the file. The symbol for a cell is that of the
last value that sets one, an empty symbol giving way to the name, and a cell for which none does is
shown as the file says. Values that set symbols for different cells may be given in any order.
-/
theorem respond_overrides (conversion : Conversion words given formula values)
    (loads : fileTable content given = .ok fromFile)
    : (∃ table,
        renameTable content (.ofGiven given (some formula)) = .ok table
        ∧ respond content ("convert" :: words)
          = convertFormula formula table (.ofGiven given (some formula))
        ∧ ∀ reference,
          (∀ front value back symbol,
            values = front ++ value :: back
            → Sets value (canonical reference) symbol
            → (∀ later ∈ back, ∀ next, ¬ Sets later (canonical reference) next)
            → table.stored? reference = some symbol
              ∧ table.resolve reference = if symbol = "" then canonical reference else symbol)
          ∧ ((∀ value ∈ values, ∀ symbol, ¬ Sets value (canonical reference) symbol)
            → table.stored? reference = fromFile.stored? reference
              ∧ table.resolve reference = fromFile.resolve reference))
      ∧ ∀ otherWords other otherValues,
        Conversion otherWords other formula otherValues
        → apartFromRenames other = apartFromRenames given
        → otherValues.Perm values
        → (values.Pairwise fun value later =>
            ∀ name symbol next, Sets value name symbol → ¬ Sets later name next)
        → renameTable content (.ofGiven other (some formula))
            = renameTable content (.ofGiven given (some formula))
          ∧ respond content ("convert" :: otherWords) = respond content ("convert" :: words) := by
  obtain ⟨table, answer⟩ := conversion.answers loads
  refine ⟨⟨_, table, answer, fun reference => ⟨?_, fun unset => ?_⟩⟩, ?_⟩
  · intro front value back symbol split sets last
    have stored : (fromFile.insertAll (renamesOf given)).stored? reference = some symbol := by
      rw [stored?_insertAll, lastSymbol?_of_sets conversion.parses split sets last, Option.some_or]
    exact ⟨stored, resolve_of_stored? stored⟩
  · have stored : (fromFile.insertAll (renamesOf given)).stored? reference
        = fromFile.stored? reference := by
      rw [stored?_insertAll, lastSymbol?_of_not_sets conversion.parses unset, Option.none_or]
    exact ⟨stored, by rw [resolve, resolve, get?, get?, stored]⟩
  · intro otherWords other otherValues otherConversion same perm distinct
    have otherLoads : fileTable content other = .ok fromFile := by
      rw [← fileTable_apartFromRenames, same, fileTable_apartFromRenames, loads]
    obtain ⟨otherTable, otherAnswer⟩ := otherConversion.answers otherLoads
    have merged : fromFile.insertAll (renamesOf other) = fromFile.insertAll (renamesOf given) :=
      insertAll_perm fromFile (perm_of_values conversion.parses otherConversion.parses perm)
        (pairwise_canonical_of_values conversion.parses distinct)
    rw [otherTable, otherAnswer, table, answer, merged, ← convertFormula_apartFromRenames, same,
      convertFormula_apartFromRenames]
    exact ⟨rfl, rfl⟩

end Answers

/-- Of two renames for a cell in different cases the last counts, and as its symbol is empty, the
cell is shown by its name. Another cell keeps the symbol of the file.
-/
theorem respond_overrides_spellings
    : let content : String → Option ByteArray := fun path =>
        if path = "names.json" then
          some "\x7b\"a1\": \"f\", \"b1\": \"g\"\x7d".toUTF8
        else none
      let words : List String :=
        ["--rename-file", "names.json", "-ra1=x", "=A1+B1", "-r", " A1 ="]
      let given : List Given := [.renameFile "names.json", .rename "a1" "x", .rename "A1" ""]
      Conversion words given "=A1+B1" ["a1=x", " A1 ="]
      ∧ ∃ fromFile table,
        fileTable content given = .ok fromFile
        ∧ renameTable content (.ofGiven given (some "=A1+B1")) = .ok table
        ∧ table.resolve "A1" = "A1"
        ∧ table.resolve "B1" = "g" := by
  intro content words given
  have lower : ValueOption.rename.Takes "a1=x" (.rename "a1" "x") :=
    @ValueOption.Takes.rename "a1=x" "a1".toList "x".toList (by decide) (by decide) (by decide)
  have upper : ValueOption.rename.Takes " A1 =" (.rename "A1" "") :=
    @ValueOption.Takes.rename " A1 =" " A1 ".toList [] (by decide) (by decide) (by decide)
  have wording : Subcommand.convert.Wording words given (some "=A1+B1") := by
    refine .settings (.apart (.long (has_convert nofun)) (.renameFile (by decide)) ?_) <|
      .settings (.attached .nil (has_convert nofun) rfl lower (by decide) (by decide)) <|
      .formula ?_ <|
      .settings (.apart (.short .nil (has_convert nofun) rfl) upper ?_) .nil
    all_goals rintro c rest ⟨⟩
  have first : parseRename "a1=x" = .ok ("a1", "x") := by
    decide +kernel
  have second : parseRename " A1 =" = .ok ("A1", "") := by
    decide +kernel
  have conversion : Conversion words given "=A1+B1" ["a1=x", " A1 ="] := by
    refine ⟨⟨by rw [List.map_cons, List.map_singleton, first, second]; rfl, ?_⟩, wording, by decide⟩
    simp only [List.mem_cons, List.not_mem_nil, or_false, forall_eq_or_imp, forall_eq]
    exact ⟨⟨"-ra1=x", by simp [words], by decide⟩, ⟨" A1 =", by simp [words], by decide⟩⟩
  have loads := eq_ok_of_isOk (fileTable content given) (by decide +kernel) .empty
  obtain ⟨⟨table, tabled, _, shown⟩, _⟩ := respond_overrides conversion loads
  have names : canonical "a1" = "A1" ∧ canonical "A1" = "A1" ∧ canonical "B1" = "B1" := by
    decide +kernel
  refine ⟨conversion, _, table, loads, tabled, ?_, ?_⟩
  · have sets : Sets " A1 =" (canonical "A1") "" := (sets_iff second).mpr ⟨rfl, rfl⟩
    have last := ((shown "A1").1 ["a1=x"] " A1 =" [] "" rfl sets nofun).2
    rw [last, if_pos rfl, names.2.1]
  · have unset : ∀ value ∈ ["a1=x", " A1 ="], ∀ symbol, ¬ Sets value (canonical "B1") symbol := by
      simp only [List.mem_cons, List.not_mem_nil, or_false, forall_eq_or_imp, forall_eq,
        sets_iff first, sets_iff second, names]
      simp
    rw [((shown "B1").2 unset).2]
    decide +kernel

end FormulaLatex.CommandLine
